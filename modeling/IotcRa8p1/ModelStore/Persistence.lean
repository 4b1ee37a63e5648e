import IotcRa8p1.ModelStore.Store

/-!
# Crash consistency and round trip of the model slot

A power cut during `model_store_save` leaves a prefix of its operations.  Block 0 is erased first and
the header is programmed first, so the slot holds the old blob, or no header at all, or the new
header over an area that holds only new bytes and `0xFF`.

A completed save is read back by every later load exactly when the payload has the eight bytes that
`iotv_validate` looks at: for a shorter payload the magic comparison of the load reads on into
whatever the RAM buffer held behind the copied blob.
-/

namespace IotcRa8p1.ModelStore

open ByteMem NorFlash

/-- What a load may report after a save of `blob` over `old` was cut off behind `ops`. -/
inductive CrashOutcome (old blob : Mem) (ops : List FlashOp) (r : LoadResult) : Prop where
  | failed (hrc : r.rc = -2 ∨ r.rc = -12)
  | completeOld (hops : ∀ off size, FlashOp.erase off size ∉ ops) (hrc : r.rc = 0)
      (hlen : r.outLen = some ((iotvHdr old).modelLen + 32))
      (hbytes : AgreeOn r.buf old 0 ((iotvHdr old).modelLen + 32))
  | partialNew (hrc : r.rc = 0) (hlen : r.outLen = some ((iotvHdr blob).modelLen + 32))
      (hhdr : AgreeOn r.buf blob 0 32)
      (hbytes : ∀ a, a < (iotvHdr blob).modelLen + 32 → r.buf a = blob a ∨ r.buf a = 0xFF)
      (hcrc : (iotvCrc32 (payload r.buf)).toNat = (iotvHdr r.buf).crc)

/-- The erased blocks cover the blob. -/
theorem len_le_saveBlocks {len : ℕ} (hsize : len + 65536 ≤ 2 ^ 32) :
    len ≤ saveBlocks len * 65536 := by
  simp only [saveBlocks, saveEraseLen, ospiBlockErase]
  omega

/-- Once block 0 is erased and nothing is programmed, there is no header. -/
theorem slotAfter_erasing {old blob : Mem} {len k : ℕ} (h1 : 0 < k) (h2 : k ≤ saveBlocks len) :
    (iotvHdr (slotAfter old blob len k)).magic ≠ iotvMagic := by
  intro h
  have h0 := slice_getD (slotAfter old blob len k) 0 4 0 0 (by omega)
  rw [show slice (slotAfter old blob len k) 0 4 = iotvMagic from h] at h0
  have hff : slotAfter old blob len k (0 + 0) = 0xFF := by
    rw [slotAfter, Nat.sub_eq_zero_of_le h2, memcpy_out _ _ _ _ _ _ (by omega),
      memset_in _ _ _ _ _ (by omega) (by omega)]
  rw [hff] at h0
  exact absurd h0 (by decide)

/-- After the first chunk the header is the new one. -/
theorem slotAfter_header {old blob : Mem} {len k : ℕ} (hlen : 32 ≤ len)
    (hk : saveBlocks len < k) : AgreeOn (slotAfter old blob len k) blob 0 32 := by
  have hchunks : 0 < saveChunks len := by
    simp only [saveChunks, ospiProgChunk]
    omega
  intro a ha hb
  rw [slotAfter, memcpy_in _ _ _ _ _ _ ha (by omega), show 0 + (a - 0) = a by omega]

/-- While the blob is programmed, every byte below its length is a new one or erased. -/
theorem slotAfter_programming {old blob : Mem} {len k a : ℕ} (hsize : len + 65536 ≤ 2 ^ 32)
    (hk : saveBlocks len < k) (ha : a < len) :
    slotAfter old blob len k a = blob a ∨ slotAfter old blob len k a = 0xFF := by
  have hcover := len_le_saveBlocks hsize
  by_cases hprog : a < min (min (k - saveBlocks len) (saveChunks len) * 64) len
  · left
    rw [slotAfter, memcpy_in _ _ _ _ _ _ (by omega) (by omega), show 0 + (a - 0) = a by omega]
  · right
    rw [slotAfter, memcpy_out _ _ _ _ _ _ (by omega), memset_in _ _ _ _ _ (by omega)
      (by rw [Nat.min_eq_right (by omega)]; omega)]

/-- A load from the slot after `k` operations of a save. -/
theorem load_slotAfter {old blob ram : Mem} {len bufSize k : ℕ} {ops : List FlashOp}
    (hv : IotvValid blob len) (hsize : len + 65536 ≤ 2 ^ 32)
    (hops : ops = (saveUpdate blob len).take k) :
    CrashOutcome old blob ops (modelStoreLoad (slotAfter old blob len k) ram bufSize) := by
  obtain hrc | hrc | hrc := modelStoreLoad_rc (slotAfter old blob len k) ram bufSize
  · exact .failed (Or.inl hrc)
  · exact .failed (Or.inr hrc)
  obtain ⟨hlen, hcopy, -, hcv⟩ := modelStoreLoad_eq_zero hrc
  rcases Nat.eq_zero_or_pos k with rfl | hpos
  · -- nothing happened: the slot is the old one
    have hold : slotAfter old blob len 0 = old := by
      rw [← applyOps_take_saveUpdate, List.take_zero, applyOps_nil]
    rw [hold] at hrc hlen hcopy ⊢
    exact .completeOld (by simp [hops]) hrc hlen hcopy
  rcases Nat.lt_or_ge (saveBlocks len) k with hk | hk
  · -- the header is programmed first, and the erased area reaches past the blob
    have hhdr := @slotAfter_header old blob _ _ hv.hdr hk
    have hh : iotvHdr (slotAfter old blob len k) = iotvHdr blob := iotvHdr_congr hhdr
    rw [hh] at hlen hcopy
    refine .partialNew hrc hlen ((hcopy.mono le_rfl (by omega)).trans hhdr) (fun a ha => ?_) hcv.crc
    rw [hcopy a (by omega) (by omega)]
    exact slotAfter_programming hsize hk (by have := hv.fits; omega)
  · -- some blocks are erased and no byte is programmed
    rw [modelStoreLoad_of_magic (slotAfter_erasing hpos hk)] at hrc
    contradiction

/-- An erase that the driver accepted has cleared the header. -/
theorem modelStoreLoad_accepted {ans : OpAnswer} (h : ans.accepted = true) (slot ram : Mem)
    (bufSize : ℕ) :
    modelStoreLoad (applyOps (modelStoreErase ans).2 slot) ram bufSize = ⟨-2, ram, none⟩ := by
  apply modelStoreLoad_of_magic
  rw [modelStoreErase, if_neg (by rw [h]; decide)]
  intro hm
  have h0 := slice_getD (applyOps [.erase 0 4096] slot) 0 4 0 0 (by omega)
  rw [show slice (applyOps [.erase 0 4096] slot) 0 4 = iotvMagic from hm, applyOps_cons,
    applyOps_nil, FlashOp.apply, memset_in _ _ _ _ _ (by omega) (by omega)] at h0
  exact absurd h0 (by decide)

/-- And so has one that succeeded. -/
theorem modelStoreLoad_erased {ans : OpAnswer} (h : (modelStoreErase ans).1 = 0) (slot ram : Mem)
    (bufSize : ℕ) :
    modelStoreLoad (applyOps (modelStoreErase ans).2 slot) ram bufSize = ⟨-2, ram, none⟩ := by
  by_cases hacc : ans.accepted = false
  · rw [modelStoreErase, if_pos hacc] at h
    contradiction
  · exact modelStoreLoad_accepted (Bool.eq_true_of_not_eq_false hacc) slot ram bufSize

/-- **Crash consistency.**  Whatever the slot held, wherever the save of a valid blob is cut off and
whatever the driver answered before, the next load fails, or finds the complete old blob and no block
was erased, or finds the new header with nothing but new bytes and `0xFF` behind it and a matching
CRC.  A completed erase leaves an empty store.  (`hsize` says that rounding the length up to a block
does not wrap a 32-bit `size_t`; callers pass at most the 4 MB pending buffer.) -/
theorem modelStoreSave_crash_consistent :
    (∀ (drv : OspiDriver) (old blob ram : Mem) (len bufSize cut : ℕ),
      iotvValidate blob len = none → len + 65536 ≤ 2 ^ 32 →
      CrashOutcome old blob ((modelStoreSave drv old blob len).2.take cut)
        (modelStoreLoad (applyOps ((modelStoreSave drv old blob len).2.take cut) old) ram bufSize)) ∧
    (∀ (ans : OpAnswer) (slot ram : Mem) (bufSize : ℕ), (modelStoreErase ans).1 = 0 →
      (modelStoreLoad (applyOps (modelStoreErase ans).2 slot) ram bufSize).rc = -2) := by
  refine ⟨fun drv old blob ram len bufSize cut hvalid hsize => ?_, fun ans slot ram bufSize h => ?_⟩
  · obtain ⟨n, hops, -⟩ := modelStoreSave_ops drv old blob len
    have hcut : (modelStoreSave drv old blob len).2.take cut =
        (saveUpdate blob len).take (min cut n) := by rw [hops, List.take_take]
    rw [hcut, applyOps_take_saveUpdate]
    exact load_slotAfter ((iotvValidate_eq_none_iff _ _).mp hvalid) hsize rfl
  · rw [modelStoreLoad_erased h]

/-- A save over an erased slot, cut off behind the erase, and an erase. -/
theorem modelStoreSave_crash_consistent_sample :
    CrashOutcome (fun _ => 0xFF) (sampleBlob 8 [0x61])
        ((modelStoreSave idleDriver (fun _ => 0xFF) (sampleBlob 8 [0x61]) 40).2.take 1)
        (modelStoreLoad (applyOps
          ((modelStoreSave idleDriver (fun _ => 0xFF) (sampleBlob 8 [0x61]) 40).2.take 1)
          (fun _ => 0xFF)) (fun _ => 0) modelMaxBlob) ∧
      (modelStoreLoad (applyOps (modelStoreErase idleAnswer).2 (sampleBlob 8 [0x61])) (fun _ => 0)
        modelMaxBlob).rc = -2 :=
  ⟨modelStoreSave_crash_consistent.1 _ _ _ _ _ _ _ (by decide +kernel) (by decide),
    modelStoreSave_crash_consistent.2 _ _ _ _ (by decide)⟩

/-! ### Round trip -/

/-- A load that returns the saved blob: result 0, the length from the header and the bytes. -/
structure LoadsBack (r : LoadResult) (blob : Mem) : Prop where
  rc : r.rc = 0
  outLen : r.outLen = some (32 + (iotvHdr blob).modelLen)
  bytes : AgreeOn r.buf blob 0 (32 + (iotvHdr blob).modelLen)

/-- A slot that holds the blob loads it back whenever the load succeeds at all. -/
theorem loadsBack_of_rc {slot blob ram : Mem} {len bufSize : ℕ} (hv : IotvValid blob len)
    (hslot : AgreeOn slot blob 0 len) (hrc : (modelStoreLoad slot ram bufSize).rc = 0) :
    LoadsBack (modelStoreLoad slot ram bufSize) blob := by
  have hfits := hv.fits
  have hh : iotvHdr slot = iotvHdr blob := iotvHdr_congr (hslot.mono le_rfl (by omega))
  obtain ⟨hlen, hcopy, -, -⟩ := modelStoreLoad_eq_zero hrc
  rw [hh, Nat.add_comm] at hlen hcopy
  exact ⟨hrc, hlen, hcopy.trans (hslot.mono le_rfl (by omega))⟩

/-- With fewer than eight payload bytes the load compares a byte of the RAM buffer with the last
byte of the identifier. -/
theorem load_short_payload {slot blob : Mem} {len bufSize : ℕ} (hv : IotvValid blob len)
    (hslot : AgreeOn slot blob 0 len) (h8 : (iotvHdr blob).modelLen < 8) :
    (modelStoreLoad slot (fun _ => 0) bufSize).rc ≠ 0 := by
  have hh : iotvHdr slot = iotvHdr blob :=
    iotvHdr_congr (hslot.mono le_rfl (by have := hv.hdr; omega))
  intro hrc
  obtain ⟨-, -, hrest, hcv⟩ := modelStoreLoad_eq_zero hrc
  -- byte 39 lies behind the copied blob, where the buffer is zero
  have h39 := hrest 39 (by rw [hh]; omega)
  have hlast := slice_getD (modelStoreLoad slot (fun _ => 0) bufSize).buf 36 4 3 0 (by omega)
  rw [hcv.tfl3, h39] at hlast
  exact absurd hlast (by decide)

/-- **Round trip.**  After a save that returned 0, every later load into every RAM content and every
buffer of at least `MODEL_MAX_BLOB` bytes gives the blob back if and only if its header claims at
least eight payload bytes. -/
theorem modelStoreSave_round_trip_iff (drv : OspiDriver) (slot blob : Mem) (len : ℕ)
    (hsave : (modelStoreSave drv slot blob len).1 = 0) :
    (∀ ram bufSize, modelMaxBlob ≤ bufSize →
      LoadsBack (modelStoreLoad (applyOps (modelStoreSave drv slot blob len).2 slot) ram bufSize)
        blob) ↔ 8 ≤ (iotvHdr blob).modelLen := by
  obtain ⟨hv, hslot⟩ := modelStoreSave_eq_zero hsave
  constructor
  · intro h
    by_contra h8
    exact load_short_payload hv hslot (by omega) (h (fun _ => 0) modelMaxBlob le_rfl).rc
  · intro h8 ram bufSize hbuf
    exact loadsBack_of_rc hv hslot (modelStoreLoad_of_valid hv h8 hslot ram bufSize hbuf)

theorem modelStoreSave_round_trip_iff_sample :
    (∀ ram bufSize, modelMaxBlob ≤ bufSize →
      LoadsBack (modelStoreLoad (applyOps
        (modelStoreSave idleDriver (fun _ => 0) (sampleBlob 8 [0x61]) 40).2 (fun _ => 0)) ram bufSize)
        (sampleBlob 8 [0x61])) ↔ 8 ≤ (iotvHdr (sampleBlob 8 [0x61])).modelLen :=
  modelStoreSave_round_trip_iff _ _ _ _ (by decide +kernel)

/-- A 40-byte blob whose header claims an empty payload is saved, and a load into a cleared buffer
does not give it back. -/
theorem modelStoreSave_round_trip_short_payload :
    ¬ ∀ (drv : OspiDriver) (slot blob : Mem) (len : ℕ), (modelStoreSave drv slot blob len).1 = 0 →
      ∀ ram bufSize, modelMaxBlob ≤ bufSize →
        LoadsBack (modelStoreLoad (applyOps (modelStoreSave drv slot blob len).2 slot) ram bufSize)
          blob := by
  intro h
  have hrc := (h idleDriver (fun _ => 0) (sampleBlob 0 [0x61]) 40 (by decide +kernel)
    (fun _ => 0) modelMaxBlob le_rfl).rc
  exact absurd hrc (by decide +kernel)

end IotcRa8p1.ModelStore
