import IotcRa8p1.Lib.ByteMem

/-!
# Erase-then-program updates of a NOR flash

An erase sets a block to `0xFF`, a completed program copies bytes from memory.  The update of an
image erases its blocks from the bottom up and then programs it in chunks from the bottom up; a
power cut leaves a prefix of that schedule.

`applyOps_take_update` is the closed form of every such prefix: how far the erase came, and, once
all blocks are erased, how much of the image stands.
-/

namespace IotcRa8p1.NorFlash

open ByteMem

/-- A completed flash operation. -/
inductive FlashOp where
  | erase (off size : ℕ)
  | program (off : ℕ) (src : Mem) (srcOff n : ℕ)

def FlashOp.apply : FlashOp → Mem → Mem
  | .erase off size, m => memset m off 0xFF size
  | .program off src srcOff n, m => memcpy m off src srcOff n

/-- The array after the operations, in order. -/
def applyOps (ops : List FlashOp) (m : Mem) : Mem := ops.foldl (fun m op => op.apply m) m

@[simp] theorem applyOps_nil (m : Mem) : applyOps [] m = m := rfl

theorem applyOps_cons (op : FlashOp) (ops : List FlashOp) (m : Mem) :
    applyOps (op :: ops) m = applyOps ops (op.apply m) := rfl

theorem applyOps_append (ops ops' : List FlashOp) (m : Mem) :
    applyOps (ops ++ ops') m = applyOps ops' (applyOps ops m) := List.foldl_append ..

/-- Erase the first `n` blocks, from the bottom up. -/
def eraseBlocks (blk n : ℕ) : List FlashOp :=
  (List.range n).map fun k => .erase (k * blk) blk

/-- The size of chunk `k` of an image of `len` bytes. -/
def chunkSize (chunk len k : ℕ) : ℕ := min chunk (len - k * chunk)

/-- Program the first `n` chunks of an image of `len` bytes, from the bottom up. -/
def programChunks (src : Mem) (chunk len n : ℕ) : List FlashOp :=
  (List.range n).map fun k => .program (k * chunk) src (k * chunk) (chunkSize chunk len k)

@[simp] theorem eraseBlocks_length (blk n : ℕ) : (eraseBlocks blk n).length = n := by
  simp [eraseBlocks]

@[simp] theorem programChunks_length (src : Mem) (chunk len n : ℕ) :
    (programChunks src chunk len n).length = n := by
  simp [programChunks]

theorem eraseBlocks_succ (blk n : ℕ) :
    eraseBlocks blk (n + 1) = eraseBlocks blk n ++ [.erase (n * blk) blk] := by
  simp [eraseBlocks, List.range_succ]

theorem programChunks_succ (src : Mem) (chunk len n : ℕ) :
    programChunks src chunk len (n + 1) =
      programChunks src chunk len n ++
        [.program (n * chunk) src (n * chunk) (chunkSize chunk len n)] := by
  simp [programChunks, List.range_succ]

theorem eraseBlocks_take (blk n k : ℕ) :
    (eraseBlocks blk n).take k = eraseBlocks blk (min k n) := by
  simp [eraseBlocks, ← List.map_take, List.take_range]

theorem programChunks_take (src : Mem) (chunk len n k : ℕ) :
    (programChunks src chunk len n).take k = programChunks src chunk len (min k n) := by
  simp [programChunks, ← List.map_take, List.take_range]

/-- Erasing `n` blocks leaves `0xFF` below `n * blk` and nothing else changed. -/
theorem applyOps_eraseBlocks (blk n : ℕ) (m : Mem) :
    applyOps (eraseBlocks blk n) m = memset m 0 0xFF (n * blk) := by
  induction n with
  | zero =>
    funext a
    simp [eraseBlocks, memset]
  | succ n ih =>
    rw [eraseBlocks_succ, applyOps_append, ih]
    funext a
    simp only [applyOps_cons, applyOps_nil, FlashOp.apply, memset, Nat.succ_mul]
    split_ifs <;> first | rfl | omega

/-- Programming `n` chunks leaves the image below `n * chunk`, cut at its length. -/
theorem applyOps_programChunks (src : Mem) (chunk len n : ℕ) (m : Mem) :
    applyOps (programChunks src chunk len n) m = memcpy m 0 src 0 (min (n * chunk) len) := by
  induction n with
  | zero =>
    funext a
    simp [programChunks, memcpy]
  | succ n ih =>
    rw [programChunks_succ, applyOps_append, ih]
    funext a
    simp only [applyOps_cons, applyOps_nil, FlashOp.apply, memcpy, chunkSize, Nat.succ_mul]
    split_ifs <;> first | rfl | omega | (congr 1; omega)

/-- The update of an image: erase `ne` blocks, then program `np` chunks. -/
def update (src : Mem) (blk ne chunk len np : ℕ) : List FlashOp :=
  eraseBlocks blk ne ++ programChunks src chunk len np

/-- **Interrupted update.**  The array after any prefix of an update: erased up to the block reached,
or, when all blocks are erased, the image up to the chunk reached over an erased area. -/
theorem applyOps_take_update (src : Mem) (blk ne chunk len np k : ℕ) (m : Mem) :
    applyOps ((update src blk ne chunk len np).take k) m =
      memcpy (memset m 0 0xFF (min k ne * blk)) 0 src 0 (min (min (k - ne) np * chunk) len) := by
  rw [update, List.take_append, eraseBlocks_take, programChunks_take, applyOps_append,
    applyOps_eraseBlocks, applyOps_programChunks, eraseBlocks_length]

end IotcRa8p1.NorFlash
